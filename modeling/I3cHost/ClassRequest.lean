import I3cHost.Coded

/-!
# Requests on the control endpoint

The requests of the device class with their codes, the features that can be enabled and disabled,
and the values that two of the requests take.
-/

namespace I3cHost

/-- The most bytes asked for by a request that fetches a table or a report. -/
def maxControlInLength : Nat := 2048

/-- The answer to the question for buffer space is one 32-bit word. -/
def bufferAvailableLength : Nat := 4

/-- A request of the device class. -/
inductive ClassRequest where
  | clearFeature
  | setFeature
  | getI3cCapability
  | initializeI3cBus
  | getTargetDeviceTable
  | setTargetDeviceConfig
  | changeDynamicAddress
  | getAddressChangeResult
  | getBufferAvailable
  | cancelOrResumeBulkRequest
  deriving DecidableEq, Inhabited

instance : Coded ClassRequest where
  subject := "bRequest"
  values := [.clearFeature, .setFeature, .getI3cCapability, .initializeI3cBus,
    .getTargetDeviceTable, .setTargetDeviceConfig, .changeDynamicAddress, .getAddressChangeResult,
    .getBufferAvailable, .cancelOrResumeBulkRequest]
  code
    | .clearFeature => 1
    | .setFeature => 3
    | .getI3cCapability => 4
    | .initializeI3cBus => 5
    | .getTargetDeviceTable => 6
    | .setTargetDeviceConfig => 7
    | .changeDynamicAddress => 8
    | .getAddressChangeResult => 9
    | .getBufferAvailable => 10
    | .cancelOrResumeBulkRequest => 11
  label
    | .clearFeature => "ClearFeature"
    | .setFeature => "SetFeature"
    | .getI3cCapability => "GetI3cCapability"
    | .initializeI3cBus => "InitializeI3cBus"
    | .getTargetDeviceTable => "GetTargetDeviceTable"
    | .setTargetDeviceConfig => "SetTargetDeviceConfig"
    | .changeDynamicAddress => "ChangeDynamicAddress"
    | .getAddressChangeResult => "GetAddressChangeResult"
    | .getBufferAvailable => "GetBufferAvailable"
    | .cancelOrResumeBulkRequest => "CancelOrResumeBulkRequest"
  mem_values value := by cases value <;> decide
  code_injective left right := by cases left <;> cases right <;> decide

/-- A feature of the device that the host can enable or disable. -/
inductive Feature where
  | i3cBus
  | controllerRoleHandoff
  | regularIbi
  | hotJoin
  | regularIbiWake
  | hotJoinWake
  | controllerRoleRequestWake
  /-- Leaving a high data rate mode; done once, nothing stays enabled. -/
  | hdrExitRecovery
  deriving DecidableEq, Inhabited

instance : Coded Feature where
  subject := "feature selector"
  values := [.i3cBus, .controllerRoleHandoff, .regularIbi, .hotJoin, .regularIbiWake,
    .hotJoinWake, .controllerRoleRequestWake, .hdrExitRecovery]
  code
    | .i3cBus => 1
    | .controllerRoleHandoff => 2
    | .regularIbi => 3
    | .hotJoin => 4
    | .regularIbiWake => 5
    | .hotJoinWake => 6
    | .controllerRoleRequestWake => 7
    | .hdrExitRecovery => 8
  label
    | .i3cBus => "I3cBus"
    | .controllerRoleHandoff => "I3cControllerRoleHandoff"
    | .regularIbi => "RegularIbi"
    | .hotJoin => "HotJoin"
    | .regularIbiWake => "RegularIbiWake"
    | .hotJoinWake => "HotJoinWake"
    | .controllerRoleRequestWake => "I3cControllerRoleRequestWake"
    | .hdrExitRecovery => "HdrModeExitRecovery"
  mem_values value := by cases value <;> decide
  code_injective left right := by cases left <;> cases right <;> decide

/-- How addresses are assigned when the bus is initialized. -/
inductive AssignmentMode where
  /-- Every target takes part in dynamic address assignment. -/
  | dynamicOnly
  /-- Targets with a static address are assigned first. -/
  | staticThenDynamic
  deriving DecidableEq

/-- The value sent with the request that initializes the bus. -/
def AssignmentMode.word : AssignmentMode → UInt16
  | .dynamicOnly => 0
  | .staticThenDynamic => 1

/-- What to do with a bulk request that is being carried out. -/
inductive BulkControl where
  | cancel
  | resume
  deriving DecidableEq

/-- The value sent with the request that cancels or resumes. -/
def BulkControl.word : BulkControl → UInt16
  | .cancel => 0
  | .resume => 1

end I3cHost
