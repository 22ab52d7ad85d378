import ResourceManager.Resources.Types

/-!
# The connection table of `event_handler.c`

`active_connections` records, for each descriptor, the peer of an open connection. The
port is `0` for the connections that the peer opened. The message that waits for a
connection in progress is not part of the entry here: the lookups do not read it.
-/

namespace ResourceManager

/-- `MAX_FDS`. -/
def maxFds : Nat := 1024

/-- `ConnectionState`. -/
structure ConnectionState where
  isActive : Bool
  ip : Ip
  port : UInt32
deriving DecidableEq

/-- `active_connections`. -/
abbrev Connections := Fin maxFds → ConnectionState

/-- `find_fd_by_ip_port`: the lowest descriptor of an active connection with this peer. -/
def findFdByIpPort (connections : Connections) (targetIp : Ip) (targetPort : UInt32) :
    Option (Fin maxFds) :=
  (List.finRange maxFds).find? fun i =>
    (connections i).isActive && decide ((connections i).port = targetPort) &&
      decide ((connections i).ip.text.take 15 = targetIp.text.take 15)

/-- `get_connection_port`. -/
def getConnectionPort (connections : Connections) (fd : Int32) : UInt32 :=
  if h : 0 ≤ fd.toInt ∧ fd.toInt.toNat < maxFds then
    if (connections ⟨fd.toInt.toNat, h.2⟩).isActive then
      (connections ⟨fd.toInt.toNat, h.2⟩).port
    else 0
  else 0

end ResourceManager
