import ChatRoom.CmdLine

/-! `main`: the options of the program, what it checks of them, and whether it goes on
as a server or as a client. `inet_addr` belongs to the system; of its result only
`INADDR_NONE` matters. -/
namespace ChatRoom.Main
open Lib CmdLine

/-- What `main` goes on with: `RunAsServer` or `RunAsClient`. -/
inductive Start where
  | server (ip : StdString) (port : Int16) (isDaemon : Bool)
  | client (ip : StdString) (port : Int16) (user : StdString)
  deriving DecidableEq

def INADDR_NONE : UInt32 := 0xffffffff

def invalidIP (inetAddr : StdString → UInt32) (ip : StdString) : Bool := inetAddr ip == INADDR_NONE

def roleName : StdString := .ascii "role"
def ipName : StdString := .ascii "ip"
def portName : StdString := .ascii "port"
def userName : StdString := .ascii "user"
def daemonName : StdString := .ascii "daemon"
def helpName : StdString := .ascii "help"

def clientRole : StdString := .ascii "client"
def serverRole : StdString := .ascii "server"

def roleOption : OptionBase :=
  .withValue .string roleName (UInt8.ofNat 'r'.toNat) (text "CR role, server or client") true clientRole
    (oneofReader [serverRole, clientRole])

def ipOption : OptionBase := .withValue .string ipName 0 (text "server ip") true (.ascii "") readString

/-- The range is one of `int`, the value is a `short`. -/
def portOption : OptionBase :=
  .withValue .short portName 0 (text "server port") true 2140 fun value => (rangeReader 1 65535 value).map Int32.toInt16

def userOption : OptionBase :=
  .withValue .string userName (UInt8.ofNat 'u'.toNat) (text "client user name") false (.ascii "") readString

def daemonOption : OptionBase := .withoutValue daemonName (UInt8.ofNat 'd'.toNat) (text "server run as a daemon")

def desc : Text :=
  text "CR is a simple chatting room program by mzy \n" ++
  text "CR could run as server or client \n" ++
  text "  run as server, you should specify the server ip, port \n" ++
  text "  run as client, you should specify the server ip, port and user name \n" ++
  text "  client run with a CDK windows, you may input /h for help info "

def prepared : Except Ended Parser := do
  let parser ← Parser.new.add roleOption
  let parser ← parser.add ipOption
  let parser ← parser.add portOption
  let parser ← parser.add userOption
  let parser ← parser.add daemonOption
  return { parser with mDesc := desc }

variable (inetAddr : StdString → UInt32)

/-- What is done with the options. -/
def choose (parser : Parser) : Except Ended Start := do
  let role ← parser.get .string roleName
  let isServer ←
    if role = clientRole then .ok false
    else if role = serverRole then .ok true
    else .error (.exits 1 (text "invalid argument, --role\n"))
  let port ← parser.get .short portName
  let ip ← parser.get .string ipName
  if invalidIP inetAddr ip then .error (.exits 1 (text "invalid ip: " ++ ip.bytes))
  let user ← parser.get .string userName
  if isServer = false ∧ user.length = 0 then .error (.exits 1 (text "user must be specified if run as a client!"))
  if isServer then
    let isDaemon ← parser.exist daemonName
    return .server ip port isDaemon
  else return .client ip port user

def main (argv : List CString) : Except Ended Start := do
  let parser ← prepared
  let parser ← parser.parseCheck argv
  choose inetAddr parser

/-- The `unsigned short` that `Listen` and `Connect` get. -/
def Start.port : Start → UInt16
  | .server _ port _ => port.toUInt16
  | .client _ port _ => port.toUInt16

def Start.ip : Start → StdString
  | .server ip _ _ => ip
  | .client ip _ _ => ip

def Start.role : Start → StdString
  | .server _ _ _ => serverRole
  | .client _ _ _ => clientRole

end ChatRoom.Main
