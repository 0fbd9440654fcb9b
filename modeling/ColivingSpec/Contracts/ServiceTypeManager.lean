import ColivingSpec.Contracts.Storage
import ColivingSpec.Lib.SlotDelete

/-!
# Service types

`ServiceTypeManager.sol`: the service types with their stake bounds and versions.
Only governance changes them.
-/

namespace ColivingSpec

open Lib

namespace ServiceTypeManager

/-- `ServiceTypeManager.sol:184–190`. -/
def serviceTypeIsValid (m : ServiceTypeManager) (serviceType : Bytes32) : Bool :=
  (m.serviceTypeInfo serviceType).isValid

/-- Storage after deployment. -/
def initialStorage : ServiceTypeManager where
  serviceTypeVersions := fun _ ↦ []
  serviceTypeVersionInfo := fun _ _ ↦ false
  validServiceTypes := []
  serviceTypeInfo := fun _ ↦ ⟨false, 0, 0⟩

variable (w : Wiring) (msg : Msg)

/-- `ServiceTypeManager.sol:88–121`. -/
def addServiceType (serviceType : Bytes32) (serviceTypeMin serviceTypeMax : ℕ)
    (m : ServiceTypeManager) : Except String ServiceTypeManager := do
  require (msg.sender = w.governance) "ServiceTypeManager: Only callable by Governance contract"
  require (!m.serviceTypeIsValid serviceType) "ServiceTypeManager: Already known service type"
  require (serviceTypeMin < serviceTypeMax)
    "ServiceTypeManager: Max stake must be non-zero and greater than min stake"
  require ((m.serviceTypeInfo serviceType).maxStake = 0)
    "ServiceTypeManager: Cannot re-add serviceType after it was removed."
  return { m with
    validServiceTypes := m.validServiceTypes ++ [serviceType]
    serviceTypeInfo :=
      Function.update m.serviceTypeInfo serviceType ⟨true, serviceTypeMin, serviceTypeMax⟩ }

/-- `ServiceTypeManager.sol:127–152`. -/
def removeServiceType (serviceType : Bytes32) (m : ServiceTypeManager) :
    Except String ServiceTypeManager := do
  require (msg.sender = w.governance) "ServiceTypeManager: Only callable by Governance contract"
  require (serviceType ∈ m.validServiceTypes)
    "ServiceTypeManager: Invalid service type, not found"
  return { m with
    validServiceTypes := deleteSlot 0 serviceType m.validServiceTypes
    serviceTypeInfo := Function.update m.serviceTypeInfo serviceType
      { m.serviceTypeInfo serviceType with isValid := false } }

/-- `ServiceTypeManager.sol:199–220`. -/
def setServiceVersion (serviceType serviceVersion : Bytes32) (m : ServiceTypeManager) :
    Except String ServiceTypeManager := do
  require (msg.sender = w.governance) "ServiceTypeManager: Only callable by Governance contract"
  require (m.serviceTypeIsValid serviceType) "ServiceTypeManager: Invalid service type"
  require (!m.serviceTypeVersionInfo serviceType serviceVersion)
    "ServiceTypeManager: Already registered"
  return { m with
    serviceTypeVersions := Function.update m.serviceTypeVersions serviceType
      (m.serviceTypeVersions serviceType ++ [serviceVersion])
    serviceTypeVersionInfo := Function.update m.serviceTypeVersionInfo serviceType
      (Function.update (m.serviceTypeVersionInfo serviceType) serviceVersion true) }

end ServiceTypeManager

end ColivingSpec
