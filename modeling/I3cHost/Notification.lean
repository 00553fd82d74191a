import I3cHost.Coded
import I3cHost.Codec.Message

/-!
# Notifications

Records that arrive on the interrupt endpoint: a type, a reserved byte and a code whose meaning
depends on the type. `Notification.kind` reads both; an unknown type is reported before an
unknown code.
-/

namespace I3cHost

/-- What a notification is about. -/
inductive NotificationType where
  | busInitialization
  | addressChange
  deriving DecidableEq, Inhabited

instance : Coded NotificationType where
  subject := "notification type"
  values := [.busInitialization, .addressChange]
  code
    | .busInitialization => 1
    | .addressChange => 2
  label
    | .busInitialization => "BusInitializationStatus"
    | .addressChange => "AddressChangeStatus"
  mem_values value := by cases value <;> decide
  code_injective left right := by cases left <;> cases right <;> decide

/-- How the initialization of the bus ended. -/
inductive BusInitCode where
  | success
  | deviceDiscoveryFailed
  | addressAssignmentFailed
  | busConfigurationFailed
  deriving DecidableEq, Inhabited

instance : Coded BusInitCode where
  subject := "bus initialization code"
  values := [.success, .deviceDiscoveryFailed, .addressAssignmentFailed, .busConfigurationFailed]
  code
    | .success => 0
    | .deviceDiscoveryFailed => 1
    | .addressAssignmentFailed => 2
    | .busConfigurationFailed => 3
  label
    | .success => "Success"
    | .deviceDiscoveryFailed => "DeviceDiscoveryFailed"
    | .addressAssignmentFailed => "DynamicAddressAssignmentFailed"
    | .busConfigurationFailed => "BusConfigurationFailed"
  mem_values value := by cases value <;> decide
  code_injective left right := by cases left <;> cases right <;> decide

/-- What happened to target addresses. -/
inductive AddressChangeCode where
  | allSucceeded
  | someFailed
  | hotJoinSucceeded
  | hotJoinFailed
  deriving DecidableEq, Inhabited

instance : Coded AddressChangeCode where
  subject := "address change code"
  values := [.allSucceeded, .someFailed, .hotJoinSucceeded, .hotJoinFailed]
  code
    | .allSucceeded => 0
    | .someFailed => 1
    | .hotJoinSucceeded => 2
    | .hotJoinFailed => 3
  label
    | .allSucceeded => "AllAddressChangesSucceeded"
    | .someFailed => "SomeAddressChangesFailed"
    | .hotJoinSucceeded => "HotJoinAddressAssignmentSucceeded"
    | .hotJoinFailed => "HotJoinAddressAssignmentFailed"
  mem_values value := by cases value <;> decide
  code_injective left right := by cases left <;> cases right <;> decide

/-- A record from the interrupt endpoint. -/
structure Notification where
  type : UInt8
  reserved : UInt8 := 0
  code : UInt16
  deriving DecidableEq

instance : Record Notification where
  size := 4
  toBytes record := [record.type, record.reserved] ++ .ofWord16 record.code
  ofBytes bytes := ⟨bytes.byte 0, bytes.byte 1, bytes.word16 2⟩
  length_toBytes _ := rfl
  ofBytes_toBytes record := by simp [Bytes.ofWord16, Bytes.word16]
  toBytes_ofBytes
    | [_, _, _, _], _ => by simp [Bytes.word16]

/-- The meaning of a notification. -/
inductive NotificationKind where
  | busInitialization (code : BusInitCode)
  | addressChange (code : AddressChangeCode)
  deriving DecidableEq

namespace Notification

/-- A notification of a type with any code. -/
def ofType (type : NotificationType) (code : UInt16) : Notification where
  type := Coded.byte type
  code

/-- The notification that reports how the initialization of the bus ended. -/
def ofBusInit (code : BusInitCode) : Notification :=
  ofType .busInitialization (Coded.word16 code)

/-- The notification that reports what happened to target addresses. -/
def ofAddressChange (code : AddressChangeCode) : Notification :=
  ofType .addressChange (Coded.word16 code)

/-- The meaning of a notification, if its type and code have one. -/
def kind (notification : Notification) : CodecResult NotificationKind := do
  match ← Coded.ofByte (α := NotificationType) notification.type with
  | .busInitialization => return .busInitialization (← Coded.ofWord16 notification.code)
  | .addressChange => return .addressChange (← Coded.ofWord16 notification.code)

end Notification

end I3cHost
