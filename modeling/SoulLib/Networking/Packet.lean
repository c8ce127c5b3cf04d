import Mathlib.Logic.Function.Basic
import Mathlib.Tactic.IntervalCases

/-! Endpoints, packet headers and packets.

Endpoint fields are stored in network byte order. The host is little-endian, so
the conversion to host order reverses the bytes.
-/

set_option autoImplicit false

namespace SoulLib.Networking

structure Endpoint where
  address : BitVec 32
  port : BitVec 16
  deriving DecidableEq, Repr

/-- `be32toh` on a little-endian host. -/
def networkToHost (value : BitVec 32) : BitVec 32 :=
  value.extractLsb' 0 8 ++ value.extractLsb' 8 8 ++ value.extractLsb' 16 8 ++ value.extractLsb' 24 8

/-- `ntohs` on a little-endian host. -/
def ntohs (value : BitVec 16) : BitVec 16 :=
  value.extractLsb' 0 8 ++ value.extractLsb' 8 8

theorem networkToHost_networkToHost (value : BitVec 32) : networkToHost (networkToHost value) = value := by
  apply BitVec.eq_of_getLsbD_eq
  intro i bound
  simp only [networkToHost, BitVec.getLsbD_append, BitVec.getLsbD_extractLsb']
  interval_cases i <;> simp

theorem ntohs_ntohs (value : BitVec 16) : ntohs (ntohs value) = value := by
  apply BitVec.eq_of_getLsbD_eq
  intro i bound
  simp only [ntohs, BitVec.getLsbD_append, BitVec.getLsbD_extractLsb']
  interval_cases i <;> simp

def Endpoint.addressHostOrder (endpoint : Endpoint) : BitVec 32 := networkToHost endpoint.address

def Endpoint.portHostOrder (endpoint : Endpoint) : BitVec 16 := ntohs endpoint.port

inductive DeliveryGuarantee where
  | unreliable
  | reliable
  deriving DecidableEq, Repr

/-- A flag byte; a received header may carry any combination of bits. -/
structure PacketFlags where
  bits : BitVec 8
  deriving DecidableEq, Repr

namespace PacketFlags

def none : PacketFlags := ⟨0x00⟩

def ack : PacketFlags := ⟨0x01⟩

def and (lhs rhs : PacketFlags) : PacketFlags := ⟨lhs.bits &&& rhs.bits⟩

def hasFlag (value flag : PacketFlags) : Bool := value.and flag != none

end PacketFlags

structure PacketHeader where
  sequence : BitVec 32 := 0
  acknowledgment : BitVec 32 := 0
  acknowledgmentMask : BitVec 32 := 0
  guarantee : DeliveryGuarantee := .unreliable
  flags : PacketFlags := .none
  channel : BitVec 16 := 0
  deriving DecidableEq, Repr

structure Packet where
  header : PacketHeader := {}
  payload : List (BitVec 8) := []
  deriving DecidableEq, Repr

/-- The condition under which `NetworkManager::receive` treats a packet as a
bare acknowledgement. -/
def Packet.ackOnly (packet : Packet) : Bool :=
  packet.header.flags.hasFlag .ack && packet.payload.isEmpty

end SoulLib.Networking
