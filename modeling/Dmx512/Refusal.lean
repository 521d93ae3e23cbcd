/-!
# Refusals

The causes for which an operation is refused, in three domains: the setup of a
link, its input and output, and the form of RDM messages. Every cause has one
wording; the refusal of a link operation names the domain first.
-/

namespace Dmx512

/-- What is wrong with a setup or with send data. -/
inductive SetupError where
  /-- Another station is attached to the link. -/
  | occupied
  /-- Send data is empty or longer than a frame. -/
  | invalidLength
  deriving DecidableEq, Repr

/-- What went wrong on the line. -/
inductive LineError where
  /-- A bounded wait expired. -/
  | timeout
  /-- The operation would cut into a running output stream. -/
  | streaming
  /-- The direction pin did not take its level. -/
  | pin
  deriving DecidableEq, Repr

/-- What is wrong with a message or a discovery response. -/
inductive MessageError where
  /-- The message is shorter than a header. -/
  | tooShort
  /-- The message is longer than its length field can declare. -/
  | tooLong
  /-- The declared length is not the length. -/
  | wrongLength
  /-- The start code or the byte behind it is not that of a message. -/
  | wrongStartCode
  /-- The preamble, the delimiter or the length of a discovery response is wrong. -/
  | malformedResponse
  /-- The checksum is not that of the content. -/
  | wrongChecksum
  deriving DecidableEq, Repr

/-- Why an operation of a link is refused. -/
inductive Refusal where
  | setup (cause : SetupError)
  | line (cause : LineError)
  | message (cause : MessageError)
  deriving DecidableEq, Repr

def SetupError.wording : SetupError → String
  | .occupied => "port already attached"
  | .invalidLength => "invalid send data length"

def LineError.wording : LineError → String
  | .timeout => "operation timed out"
  | .streaming => "invalid state for operation"
  | .pin => "direction pin error"

def MessageError.wording : MessageError → String
  | .tooShort => "message too short"
  | .tooLong => "message too long"
  | .wrongLength => "message length field mismatch"
  | .wrongStartCode => "invalid start code"
  | .malformedResponse => "invalid discovery response"
  | .wrongChecksum => "checksum mismatch"

/-- The wording of a refusal: the domain, then the cause. -/
def Refusal.wording : Refusal → String
  | .setup cause => "config: " ++ cause.wording
  | .line cause => "io: " ++ cause.wording
  | .message cause => "rdm: " ++ cause.wording

end Dmx512
