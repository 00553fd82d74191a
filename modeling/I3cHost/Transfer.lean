import I3cHost.Coded

/-!
# How a command is carried out

The kind of a command, what its failure does to the commands behind it, and the transfer mode and
rate in which it is sent. Every combination is a number on the wire; `TransferSettings` is what a
session applies to the commands it queues.
-/

namespace I3cHost

/-- The address that reaches every target on the bus. -/
def broadcastAddress : UInt8 := 0x7E

/-- The largest address of a target; addresses have seven bits. -/
def maxTargetAddress : UInt8 := 0x7F

/-- The broadcast form of the target reset action command. -/
def resetActionBroadcast : UInt8 := 0x2A

/-- The direct form of the target reset action command. -/
def resetActionDirect : UInt8 := 0x9A

/-- The kind of a command on the wire. -/
inductive CommandType where
  /-- A private read or write. -/
  | regular
  /-- A common command code alone. -/
  | cccWithoutDefiningByte
  /-- A common command code with a defining byte. -/
  | cccWithDefiningByte
  /-- The pattern that resets targets. -/
  | targetResetPattern
  deriving DecidableEq, Inhabited

instance : Coded CommandType where
  subject := "command type"
  values := [.regular, .cccWithoutDefiningByte, .cccWithDefiningByte, .targetResetPattern]
  code
    | .regular => 0
    | .cccWithoutDefiningByte => 1
    | .cccWithDefiningByte => 2
    | .targetResetPattern => 3
  label
    | .regular => "Regular"
    | .cccWithoutDefiningByte => "CccWithoutDefiningByte"
    | .cccWithDefiningByte => "CccWithDefiningByte"
    | .targetResetPattern => "TargetResetPattern"
  mem_values value := by cases value <;> decide
  code_injective left right := by cases left <;> cases right <;> decide

/-- What the device does with the commands behind a failed one. -/
inductive ErrorHandling where
  | terminateOnAnyError
  | terminateOnAnyErrorExceptNack
  | doNotTerminateExceptNack
  | doNotTerminateIncludingNack
  deriving DecidableEq, Inhabited

instance : Coded ErrorHandling where
  subject := "error handling"
  values := [.terminateOnAnyError, .terminateOnAnyErrorExceptNack, .doNotTerminateExceptNack,
    .doNotTerminateIncludingNack]
  code
    | .terminateOnAnyError => 0
    | .terminateOnAnyErrorExceptNack => 1
    | .doNotTerminateExceptNack => 2
    | .doNotTerminateIncludingNack => 3
  label
    | .terminateOnAnyError => "TerminateOnAnyError"
    | .terminateOnAnyErrorExceptNack => "TerminateOnAnyErrorExceptNack"
    | .doNotTerminateExceptNack => "DoNotTerminateExceptNack"
    | .doNotTerminateIncludingNack => "DoNotTerminateIncludingNack"
  mem_values value := by cases value <;> decide
  code_injective left right := by cases left <;> cases right <;> decide

/-- The signalling used for a command. -/
inductive TransferMode where
  | sdr
  | hdrDdr
  | hdrTsp
  | hdrTsl
  | hdrBt
  | i2c
  deriving DecidableEq, Inhabited

instance : Coded TransferMode where
  subject := "transfer mode"
  values := [.sdr, .hdrDdr, .hdrTsp, .hdrTsl, .hdrBt, .i2c]
  code
    | .sdr => 0
    | .hdrDdr => 1
    | .hdrTsp => 2
    | .hdrTsl => 3
    | .hdrBt => 4
    | .i2c => 5
  label
    | .sdr => "Sdr"
    | .hdrDdr => "HdrDdr"
    | .hdrTsp => "HdrTsp"
    | .hdrTsl => "HdrTsl"
    | .hdrBt => "HdrBt"
    | .i2c => "I2c"
  mem_values value := by cases value <;> decide
  code_injective left right := by cases left <;> cases right <;> decide

/-- The clock rate used for a command. -/
inductive TransferRate where
  | sdr0
  | sdr1
  | sdr2
  | sdr3
  | sdr4
  | i2cFm
  | i2cFmPlus
  deriving DecidableEq, Inhabited

instance : Coded TransferRate where
  subject := "transfer rate"
  values := [.sdr0, .sdr1, .sdr2, .sdr3, .sdr4, .i2cFm, .i2cFmPlus]
  code
    | .sdr0 => 0
    | .sdr1 => 1
    | .sdr2 => 2
    | .sdr3 => 3
    | .sdr4 => 4
    | .i2cFm => 5
    | .i2cFmPlus => 6
  label
    | .sdr0 => "Sdr0"
    | .sdr1 => "Sdr1"
    | .sdr2 => "Sdr2"
    | .sdr3 => "Sdr3"
    | .sdr4 => "Sdr4"
    | .i2cFm => "I2cFm"
    | .i2cFmPlus => "I2cFmPlus"
  mem_values value := by cases value <;> decide
  code_injective left right := by cases left <;> cases right <;> decide

/-- The mode, rate and mode-specific byte of a command. -/
structure TransferSettings where
  mode : TransferMode := .sdr
  rate : TransferRate := .sdr0
  modeInfo : UInt8 := 0
  deriving DecidableEq, Inhabited

end I3cHost
