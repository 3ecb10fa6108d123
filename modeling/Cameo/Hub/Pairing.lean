import Cameo.Bytes
import Cameo.Daemon.Serve
import Cameo.Hub.Farm

/-!
# The pairing route

What the route checks of a registration before it consumes a pairing code.  A node id that passes is
not empty, has no space around it and needs no truncation, so deriving an id from the stored
registration gives the same id again; the loader of the state file depends on that.
-/

namespace Cameo.Hub

open Json

def requestedId (reg : Registration) : String :=
  if trim reg.nodeId = "" then trim reg.name else trim reg.nodeId

def checkPairing (reg : Registration) : Option Daemon.Response :=
  if !pushAddressOk reg.address then
    some (.error 400 "pairing requires an allowed HTTPS callback URL")
  else
    match reg.key with
    | none => some (.error 400 "paired node requires an operator callback key")
    | some key =>
      match Daemon.validateSecret "node callback key" key with
      | .error e => some (.error 400 e)
      | .ok () =>
        if requestedId reg = "" ∨ (requestedId reg).utf8ByteSize > 256 then
          some (.error 400 "pairing requires a node id or name up to 256 bytes")
        else none

theorem requestedId_of_checkPairing {reg : Registration} (h : checkPairing reg = none) :
    requestedId reg ≠ "" ∧ (requestedId reg).utf8ByteSize ≤ maxNodeIdLen := by
  unfold checkPairing at h
  split at h
  · cases h
  · split at h
    · cases h
    · split at h
      · cases h
      · split at h
        · cases h
        · rename_i hid
          obtain ⟨hne, hsize⟩ := not_or.mp hid
          exact ⟨hne, not_lt.mp hsize⟩

/-! ## Ids that derive again -/

theorem trim_requestedId (reg : Registration) : trim (requestedId reg) = requestedId reg := by
  unfold requestedId
  split <;> exact trim_trim _

theorem pickId_of_requestedId {reg : Registration} (h : requestedId reg ≠ "") :
    pickId reg = requestedId reg := by
  unfold requestedId at *
  by_cases hid : trim reg.nodeId = ""
  · rw [if_pos hid] at h
    simp [pickId, hid, h]
  · simp [pickId, hid]

theorem capIdLen_of_le {s : String} (h : s.utf8ByteSize ≤ maxNodeIdLen) : capIdLen s = s :=
  if_neg (not_lt.mpr h)

theorem assignedId_eq {reg : Registration} (hne : requestedId reg ≠ "")
    (hsize : (requestedId reg).utf8ByteSize ≤ maxNodeIdLen) : assignedId reg = requestedId reg :=
  calc assignedId reg
      = capIdLen (pickId reg) := assignedId_eq_capIdLen reg
    _ = capIdLen (requestedId reg) := by rw [pickId_of_requestedId hne]
    _ = requestedId reg := capIdLen_of_le hsize

/-- A registration that the route accepts is enrolled under the id that it asks for, and the stored
registration derives the same id again. -/
theorem assignedId_of_checkPairing {reg : Registration} (h : checkPairing reg = none)
    (codec : Codec) : assignedId (storedRegistration codec reg) = assignedId reg := by
  obtain ⟨hne, hsize⟩ := requestedId_of_checkPairing h
  have hassigned : assignedId reg = requestedId reg := assignedId_eq hne hsize
  have hstored : requestedId (storedRegistration codec reg) = requestedId reg := by
    rw [requestedId, storedRegistration_nodeId, hassigned, trim_requestedId, if_neg hne]
  rw [← hstored] at hne hsize
  calc assignedId (storedRegistration codec reg)
      = requestedId (storedRegistration codec reg) := assignedId_eq hne hsize
    _ = requestedId reg := hstored
    _ = assignedId reg := hassigned.symm

end Cameo.Hub
