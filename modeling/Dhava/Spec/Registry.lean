import Dhava.Spec.Server

/-! What the server reports about the nodes in `sync_nodes`. -/

namespace Dhava

open Foundations

/-- `NodeInfo`. Nothing sets `pending_ops_on_node`. -/
structure NodeInfo (V : Type) where
  nodeId : String
  lastSync : Option ℚ
  lastSyncStatus : String
  totalOpsSynced : ℤ
  pendingOpsOnNode : Option ℤ := none
  publicKey : Option (List UInt8)
  metadata : Dict String V

variable {V : Type}

/-- `_row_to_node_info`: an empty key counts as none. -/
def rowToNodeInfo (row : NodeRow V) : NodeInfo V where
  nodeId := row.nodeId
  lastSync := row.lastSyncAt
  lastSyncStatus := row.lastSyncStatus
  totalOpsSynced := row.totalOpsSynced
  publicKey := row.publicKey.filter (· ≠ [])
  metadata := row.metadata

namespace Server

/-- `get_node_status`; the row is what `getNodeStatus` finds. -/
def nodeStatus (srv : Server V) (nodeId : String) : Option (NodeInfo V) :=
  (srv.getNodeStatus nodeId).map rowToNodeInfo

/-- `ORDER BY registered_at ASC`; rows with equal times stay in table order. -/
def listNodes (srv : Server V) : List (NodeInfo V) :=
  (srv.syncNodes.rows.insertionSort fun a b => a.registeredAt ≤ b.registeredAt).map rowToNodeInfo

end Server
end Dhava
