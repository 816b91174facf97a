import Mathlib.Algebra.Group.Nat.Defs
import Mathlib.Data.List.Basic
import AudioFork.Text

/-!
# Protocol — the JSON control messages of the wire protocol

`EncodeHello`, `EncodeResume`, `EncodeDtmf`, `EncodeBye` and `ParseServerMessage` of
`protocol.cpp`.  The JSON library itself is not part of the repository: `JsonLib` is its interface,
a parser that either discards the text or yields a value, and a printer.  Everything the module does
with parsed values is written out here.
-/

namespace AudioFork
namespace Protocol

/-- A parsed JSON value, with the library's distinction between unsigned, negative and fractional
numbers. -/
inductive Json
  | null
  | bool (value : Bool)
  | unsigned (value : UInt64)
  | integer (value : Int)
  | float (digits : Text)
  | string (value : Text)
  | array (items : List Json)
  | object (members : List (Text × Json))

namespace Json

/-- `find` on an object. -/
def find (key : Text) (members : List (Text × Json)) : Option Json :=
  (members.find? fun m => m.1 = key).map Prod.snd

end Json

/-- The JSON library: `json::parse(text, nullptr, false)`, where `none` is a discarded value, and
`dump`. -/
structure JsonLib where
  parse : Text → Option Json
  dump : Json → Text

def maxMessageBytes : Nat := 64 * 1024
def maxNestingDepth : Nat := 64
def maxMarkNameBytes : Nat := 256
def minSampleRate : Nat := 8000
def maxSampleRate : Nat := 48000

/-! ## The depth guard -/

def charQuote : UInt8 := 34
def charOpenBracket : UInt8 := 91
def charBackslash : UInt8 := 92
def charCloseBracket : UInt8 := 93
def charOpenBrace : UInt8 := 123
def charCloseBrace : UInt8 := 125

/-- The scan of `NestingTooDeep` from a given depth, inside or outside a string literal.  Brackets
inside string literals do not count. -/
def nestingTooDeepFrom (depth : Nat) (inString escaped : Bool) : Text → Bool
  | [] => false
  | c :: rest =>
      if inString then
        if escaped then
          nestingTooDeepFrom depth true false rest
        else if c = charBackslash then
          nestingTooDeepFrom depth true true rest
        else if c = charQuote then
          nestingTooDeepFrom depth false false rest
        else
          nestingTooDeepFrom depth true false rest
      else if c = charQuote then
        nestingTooDeepFrom depth true escaped rest
      else if c = charOpenBrace ∨ c = charOpenBracket then
        if depth + 1 > maxNestingDepth then
          true
        else
          nestingTooDeepFrom (depth + 1) false escaped rest
      else if c = charCloseBrace ∨ c = charCloseBracket then
        nestingTooDeepFrom (depth - 1) false escaped rest
      else
        nestingTooDeepFrom depth false escaped rest

def nestingTooDeep (text : Text) : Bool := nestingTooDeepFrom 0 false false text

/-! ## Encoding -/

def validSampleRate (rate : Nat) : Bool := minSampleRate ≤ rate ∧ rate ≤ maxSampleRate

structure HelloParams where
  callSid : Text
  sampleRate : Nat
  channels : Nat
  metadataJson : Text

/-- `none` when the parameters have no encoding: an empty call id, a rate or channel count out of
range, or metadata that is not JSON. -/
def encodeHello (lib : JsonLib) (params : HelloParams) : Option Text :=
  if params.callSid.isEmpty ∨ ¬ validSampleRate params.sampleRate ∨ params.channels < 1 ∨
      params.channels > 2 then
    none
  else
    let message : List (Text × Json) :=
      [(ascii "type", .string (ascii "hello")),
        (ascii "version", .string (ascii "1.0")),
        (ascii "callSid", .string params.callSid),
        (ascii "rate", .unsigned (UInt64.ofNat params.sampleRate)),
        (ascii "channels", .unsigned (UInt64.ofNat params.channels)),
        (ascii "encoding", .string (ascii "L16"))]
    if params.metadataJson.isEmpty then
      some (lib.dump (.object message))
    else
      match lib.parse params.metadataJson with
      | none => none
      | some metadata => some (lib.dump (.object (message ++ [(ascii "metadata", metadata)])))

def encodeResume (lib : JsonLib) (gapMs droppedMs : Nat) : Text :=
  lib.dump (.object
    [(ascii "type", .string (ascii "resume")),
      (ascii "gapMs", .unsigned (UInt64.ofNat gapMs)),
      (ascii "droppedMs", .unsigned (UInt64.ofNat droppedMs))])

def dtmfDigits : Text := ascii "0123456789*#ABCD"

def encodeDtmf (lib : JsonLib) (digit : UInt8) (durationMs : Nat) : Option Text :=
  if dtmfDigits.contains digit then
    some (lib.dump (.object
      [(ascii "type", .string (ascii "dtmf")),
        (ascii "digit", .string [digit]),
        (ascii "durationMs", .unsigned (UInt64.ofNat durationMs))]))
  else
    none

def encodeBye (lib : JsonLib) : Text :=
  lib.dump (.object [(ascii "type", .string (ascii "bye"))])

/-! ## Parsing -/

inductive ServerMessage
  | startPlayback (sampleRate channels : Nat)
  | clearPlayback
  | playbackMark (name : Text)
  | serverDisconnect
  | relayToApp (payload : Text)
  | invalidMessage (reason : Text)
  deriving DecidableEq, Repr

def parseMark (members : List (Text × Json)) : ServerMessage :=
  match Json.find (ascii "name") members with
  | some (.string name) =>
      if name.isEmpty ∨ name.length > maxMarkNameBytes then
        .invalidMessage (ascii "mark name length out of bounds")
      else
        .playbackMark name
  | _ => .invalidMessage (ascii "mark requires a string name")

/-- The optional `rate` member; an absent one reads as zero. -/
def parseRate (members : List (Text × Json)) : Except Text Nat :=
  match Json.find (ascii "rate") members with
  | none => .ok 0
  | some (.unsigned rate) =>
      -- the range check runs on the value narrowed to 32 bits, the upper bound also on the whole
      if ¬ validSampleRate (rate.toNat % 2 ^ 32) ∨ rate.toNat > maxSampleRate then
        .error (ascii "start_playback rate out of range")
      else
        .ok (rate.toNat % 2 ^ 32)
  | some _ => .error (ascii "start_playback rate must be an unsigned integer")

/-- The optional `channels` member; an absent one reads as zero. -/
def parseChannels (members : List (Text × Json)) : Except Text Nat :=
  match Json.find (ascii "channels") members with
  | none => .ok 0
  | some (.unsigned channels) =>
      if channels.toNat < 1 ∨ channels.toNat > 2 then
        .error (ascii "start_playback channels out of range")
      else
        .ok (channels.toNat % 2 ^ 8)
  | some _ => .error (ascii "start_playback channels must be an unsigned integer")

def parseStartPlayback (members : List (Text × Json)) : ServerMessage :=
  match parseRate members with
  | .error reason => .invalidMessage reason
  | .ok rate =>
      match parseChannels members with
      | .error reason => .invalidMessage reason
      | .ok channels => .startPlayback rate channels

/-- Valid JSON that is not a recognised control message is relayed verbatim. -/
def parseServerMessage (lib : JsonLib) (text : Text) : ServerMessage :=
  if text.length > maxMessageBytes then
    .invalidMessage (ascii "message exceeds size limit")
  else if nestingTooDeep text then
    .invalidMessage (ascii "nesting exceeds depth limit")
  else
    match lib.parse text with
    | none => .invalidMessage (ascii "not valid JSON")
    | some (.object members) =>
        match Json.find (ascii "type") members with
        | some (.string type) =>
            if type = ascii "clear" then
              .clearPlayback
            else if type = ascii "disconnect" then
              .serverDisconnect
            else if type = ascii "mark" then
              parseMark members
            else if type = ascii "start_playback" then
              parseStartPlayback members
            else
              .relayToApp text
        | _ => .relayToApp text
    | some _ => .relayToApp text

end Protocol
end AudioFork
