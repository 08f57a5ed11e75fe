import ChatRoom.PagedRefinement

/-! Who hears of a logon. The members of the hall are told who is there; then the
connection itself is answered, and sent the rooms. The list of rooms goes to one
connection, except that for `PublishRoomList` the id 0 stands for everybody, and
0 is the id of the first connection that the net service accepts. -/
namespace ChatRoom.LogonReplies
open Lib Wire RoomKeeper RoomKeeperInvariant Worker PagedRefinement

variable {host : Host} {keeper next : RoomKeeper} {connId userId : UInt64} {name ip : StdString} {port : UInt16}
  {infos : List Sent} {reply : List Field}

/-- The logon has put the connection into the hall, and the hall was told. -/
def Welcomed (keeper : RoomKeeper) (name : StdString) (connId : UInt64) (next : RoomKeeper) (infos : List Sent)
    (reply : List Field) : Prop :=
  logonRefusal keeper name connId = none ∧
    ∃ (hallId : UInt32) (hall : Room) (record : User), next.mRoomNames[HALL_NAME]? = some hallId ∧
      next.mIdRoom[hallId]? = some hall ∧ next.mIdUser[connId]? = some record ∧ connId ∈ hall.mUsers ∧
      infos = announce next hall ∧ reply = logonRes 0 (.ascii "") record.encode

/-- The logon has failed, and nobody was told. -/
def TurnedAway (keeper : RoomKeeper) (name : StdString) (connId : UInt64) (next : RoomKeeper) (infos : List Sent)
    (reply : List Field) : Prop :=
  ∃ err, logonRefusal keeper name connId = some err ∧ next = keeper ∧ infos = [] ∧
    reply = logonRes err.code (errText err) []

/-- What comes of a logon, as it succeeds or not. -/
def Answered (keeper : RoomKeeper) (name : StdString) (connId : UInt64) (next : RoomKeeper) (infos : List Sent)
    (reply : List Field) : Prop :=
  Welcomed keeper name connId next infos reply ∨ TurnedAway keeper name connId next infos reply

end ChatRoom.LogonReplies
