import ChatRoom.PagedRefinement

/-! Which clients the server survives. A chat or a whisper of somebody who is not
logged on fails an assertion, and so does a chat to a room that does not exist; and
every message that a request makes is written to a page of its own, in which there has
to be room for it. Nothing else stops the worker. -/
namespace ChatRoom.ServerSurvival
open Lib Wire Worker RoomKeeperInvariant WorkerSafety PagedRefinement

variable {host : Host} {keeper next : RoomKeeper} {event : Event} {own : List OperContext} {events : List Event}
  {owns : List (List OperContext)}

end ChatRoom.ServerSurvival
