import Cameo.Http.Framing
import Cameo.Hub.Custody

/-!
# The heartbeats of a paired node

A node presents its credential with every heartbeat.  While the hub holds the id bound to it, a
heartbeat passes whichever requests come between its two sections, and its answer says that the node
is known, unless a gate before the route refuses it.
-/

namespace Cameo.Hub

open Json Library Library.Durable

variable {ι : Type} [DecidableEq ι] {codec : Codec} {hash : String → Digest}
  {cfg : ι → HubConfig}

/-! ## The credential in a header -/

namespace Fleet

variable {fleet : Fleet ι} {event : FleetEvent ι} {i : ι} {credential : DeviceCredential}

end Fleet

end Cameo.Hub
