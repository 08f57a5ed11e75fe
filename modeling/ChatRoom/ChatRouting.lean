import ChatRoom.PagedRefinement

/-! Who receives a chat message. The message carries a room id, and the server
takes the room from there, not from its own record of the sender: it delivers to
each member of the named room once, whoever sends it. -/
namespace ChatRoom.ChatRouting
open Lib Wire Worker RoomKeeperInvariant WorkerSafety PagedRefinement

variable {host : Host} {keeper : RoomKeeper} {owns : List (List OperContext)} {events : List Event}

end ChatRoom.ChatRouting
